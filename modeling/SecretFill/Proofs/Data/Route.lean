import Mathlib.Data.Set.Defs
import Mathlib.Logic.Relation
import SecretFill.Forest.Path
import SecretFill.Proofs.Data.Closed
import SecretFill.Proofs.Data.Tree
/-!
Ways through a document, from a container to what stands in it: the items of a list and the values
of the entries of a mapping, in their order. A route names the place taken in each container, and
`follow` says where it leads and what path it has.
-/

namespace SecretFill.Data

open Relation

/-- The values in a container that a walk goes on to. -/
def Cell.parts : Cell → List Value
  | .list items => items
  | .mapping entries => entries.map Prod.snd
  | _ => []

def Cell.keys : Cell → List Value
  | .mapping entries => entries.map Prod.fst
  | _ => []

def Cell.refill (parts : List Value) : Cell → Cell
  | .list _ => .list parts
  | .mapping entries => .mapping ((entries.map Prod.fst).zip parts)
  | cell => cell

/-- The parts of a container that has a path, each with its own path. A part has none if its key has
no text. -/
def Cell.steps (cells : Array Cell) (path : Text) : Cell → List (Value × Option Text)
  | .list items => items.mapIdx fun place item => (item, some (Path.item path place))
  | .mapping entries => entries.map fun (key, value) =>
      (value, if hasLabel key then some (Path.entry path (keyLabel cells key)) else none)
  | _ => []

def Value.cell? (cells : Array Cell) : Value → Option Cell
  | .atom _ => none
  | .cell index => cells[index]?

variable {cells : Array Cell}

def Inside (cells : Array Cell) (outer inner : Value) : Prop :=
  ∃ cell, outer.cell? cells = some cell ∧ inner ∈ cell.parts

def Reaches (cells : Array Cell) : Value → Value → Prop := ReflTransGen (Inside cells)

def IsContainer (cells : Array Cell) (index : Nat) : Prop :=
  ∃ cell, cells[index]? = some cell ∧ cell.isContainer = true

def containers (cells : Array Cell) (root : Value) : Set Nat :=
  {index | IsContainer cells index ∧ Reaches cells root (.cell index)}

def Cyclic (cells : Array Cell) (root : Value) : Prop :=
  ∃ value, Reaches cells root value ∧ TransGen (Inside cells) value value

def Named (cells : Array Cell) (root : Value) : Prop :=
  ∀ value cell, Reaches cells root value → value.cell? cells = some cell →
    ∀ key ∈ cell.keys, hasLabel key = true

/-- Nothing below a value leads on without end. -/
def Grounded (cells : Array Cell) : Value → Prop := Acc fun inner outer => Inside cells outer inner

/-- Where a route leads from a value with a path, and the path of what it comes to. -/
def follow (cells : Array Cell) : Value → Text → List Nat → Option (Value × Text)
  | value, path, [] => some (value, path)
  | value, path, place :: route => do
      let cell ← value.cell? cells
      let (part, deeper) ← (cell.steps cells path)[place]?
      follow cells part (← deeper) route

/-- A route goes another way than a second one does, and takes an earlier place there. -/
def LeftOf : List Nat → List Nat → Prop
  | first :: route, second :: other => first < second ∨ first = second ∧ LeftOf route other
  | _, _ => False

theorem forall₂_left {α β : Type} {related : α → β → Prop} {first : List α} {second : List β}
    (pairs : List.Forall₂ related first second) {element : α} (member : element ∈ first) :
    ∃ other ∈ second, related element other := by
  induction pairs with
  | nil => cases member
  | cons here _ ih =>
      rcases List.mem_cons.mp member with rfl | later
      · exact ⟨_, List.mem_cons_self, here⟩
      · obtain ⟨other, inside, that⟩ := ih later
        exact ⟨other, List.mem_cons_of_mem _ inside, that⟩

/-! ### Parts -/

theorem map_fst_steps (cells : Array Cell) (path : Text) (cell : Cell) :
    (cell.steps cells path).map Prod.fst = cell.parts := by
  cases cell with
  | list items =>
      apply List.ext_getElem
      · simp [Cell.steps, Cell.parts]
      · simp [Cell.steps, Cell.parts]
  | mapping entries => simp [Cell.steps, Cell.parts, Function.comp_def]
  | _ => rfl

theorem isContainer_refill (parts : List Value) (cell : Cell) :
    (cell.refill parts).isContainer = cell.isContainer := by
  cases cell <;> rfl

theorem parts_refill {cell : Cell} {parts : List Value} (container : cell.isContainer = true)
    (sizes : cell.parts.length = parts.length) : (cell.refill parts).parts = parts := by
  cases cell with
  | list items => rfl
  | mapping entries =>
      have enough : parts.length ≤ (entries.map Prod.fst).length := by simp [← sizes, Cell.parts]
      exact List.map_snd_zip enough
  | _ => cases container

theorem parts_of_simple {cell : Cell} (simple : ¬ cell.isContainer = true) : cell.parts = [] := by
  cases cell with
  | list items => exact absurd rfl simple
  | mapping entries => exact absurd rfl simple
  | _ => rfl

theorem forall₂_parts {α : Type} {related : Value → α → Prop} {entries : List (Value × Value)}
    {others : List (Value × α)} (keys : entries.map Prod.fst = others.map Prod.fst)
    (each : ∀ place (inEntries : place < entries.length) (inOthers : place < others.length),
      related entries[place].2 others[place].2) :
    List.Forall₂ related (Cell.mapping entries).parts (others.map Prod.snd) := by
  have sizes : entries.length = others.length := by simpa using congrArg List.length keys
  rw [Cell.parts, List.forall₂_map_left_iff, List.forall₂_map_right_iff]
  exact List.forall₂_iff_get.mpr ⟨sizes, each⟩

theorem zip_of_keys {α : Type} {entries : List (Value × Value)} {others : List (Value × α)}
    (keys : entries.map Prod.fst = others.map Prod.fst) :
    (entries.map Prod.fst).zip (others.map Prod.snd) = others := by
  rw [keys, List.zip_map']
  exact List.map_id others

theorem part_of_step {path : Text} {cell : Cell} {part : Value} {deeper : Option Text}
    (step : (part, deeper) ∈ cell.steps cells path) : part ∈ cell.parts := by
  rw [← map_fst_steps cells path cell]
  exact List.mem_map_of_mem step

theorem step_of_part {cell : Cell} {part : Value} (path : Text) (member : part ∈ cell.parts) :
    ∃ deeper, (part, deeper) ∈ cell.steps cells path := by
  rw [← map_fst_steps cells path cell] at member
  obtain ⟨⟨_, deeper⟩, step, rfl⟩ := List.mem_map.mp member
  exact ⟨deeper, step⟩

/-- A part without a path has a key without a text. -/
theorem pathless_iff {path : Text} {cell : Cell} :
    (∃ part, (part, none) ∈ cell.steps cells path) ↔ ∃ key ∈ cell.keys, hasLabel key = false := by
  cases cell with
  | mapping entries =>
      constructor
      · rintro ⟨part, step⟩
        obtain ⟨⟨key, value⟩, member, same⟩ := List.mem_map.mp step
        refine ⟨key, List.mem_map_of_mem member, ?_⟩
        by_contra labelled
        simp [Bool.of_not_eq_false labelled] at same
      · rintro ⟨key, member, unnamed⟩
        obtain ⟨⟨_, value⟩, inside, rfl⟩ := List.mem_map.mp member
        exact ⟨value, List.mem_map.mpr ⟨_, inside, by simp [unnamed]⟩⟩
  | _ => simp [Cell.steps, Cell.keys]

theorem isContainer_of_part {value part : Value} (inside : Inside cells value part) :
    ∃ index, value = .cell index ∧ IsContainer cells index := by
  obtain ⟨cell, found, member⟩ := inside
  cases value with
  | atom atom => cases found
  | cell index =>
      refine ⟨index, rfl, cell, found, ?_⟩
      by_contra simple
      rw [parts_of_simple simple] at member
      cases member

theorem not_inside_of_simple {value : Value}
    (simple : ∀ index, value = .cell index → ¬ IsContainer cells index) (part : Value) :
    ¬ Inside cells value part := by
  intro inside
  obtain ⟨index, same, container⟩ := isContainer_of_part inside
  exact simple index same container

theorem inside_cell {index : Nat} {cell : Cell} (found : cells[index]? = some cell) (part : Value) :
    Inside cells (.cell index) part ↔ part ∈ cell.parts := by
  constructor
  · rintro ⟨_, again, member⟩
    cases again.symm.trans found
    exact member
  · exact fun member => ⟨cell, found, member⟩

/-! ### What is reached -/

theorem ClosedCells.within_of_reaches (closed : ClosedCells cells) {value inner : Value}
    (within : value.Within cells.size) (reaches : Reaches cells value inner) :
    inner.Within cells.size := by
  induction reaches with
  | refl => exact within
  | tail _ inside _ =>
      obtain ⟨index, rfl, -⟩ := isContainer_of_part inside
      obtain ⟨cell, found, member⟩ := inside
      refine closed index cell found _ ?_
      cases cell with
      | list items => exact member
      | mapping entries => exact List.mem_append_right _ member
      | _ => cases member

theorem Reaches.eq_of_simple {value inner : Value}
    (simple : ∀ index, value = .cell index → ¬ IsContainer cells index)
    (reaches : Reaches cells value inner) : inner = value := by
  rcases ReflTransGen.cases_head reaches with same | ⟨part, inside, -⟩
  · exact same.symm
  · exact absurd inside (not_inside_of_simple simple part)

theorem Named.inside {value part : Value} (named : Named cells value)
    (inside : Inside cells value part) : Named cells part :=
  fun inner cell reaches => named inner cell (.head inside reaches)

theorem Grounded.irrefl {value : Value} (grounded : Grounded cells value) :
    ¬ TransGen (Inside cells) value value := by
  induction grounded with
  | intro value _ ih =>
      intro cycle
      obtain ⟨part, inside, back⟩ := TransGen.head'_iff.mp cycle
      exact ih part inside (TransGen.tail' back inside)

theorem Grounded.reaches {value inner : Value} (grounded : Grounded cells value)
    (reaches : Reaches cells value inner) : Grounded cells inner := by
  induction reaches with
  | refl => exact grounded
  | tail _ inside ih => exact ih.inv inside

theorem Grounded.acyclic {value : Value} (grounded : Grounded cells value) :
    ¬ Cyclic cells value := by
  rintro ⟨inner, reaches, cycle⟩
  exact (grounded.reaches reaches).irrefl cycle

/-! ### Routes -/

theorem follow_cons {index place : Nat} {path deeper : Text} {cell : Cell} {part : Value}
    (found : cells[index]? = some cell)
    (step : (cell.steps cells path)[place]? = some (part, some deeper)) (route : List Nat) :
    follow cells (.cell index) path (place :: route) = follow cells part deeper route := by
  simp [follow, Value.cell?, found, step]

theorem follow_cons_eq_some {value goal : Value} {place : Nat} {path goalPath : Text}
    {route : List Nat} (followed : follow cells value path (place :: route) = some (goal, goalPath)) :
    ∃ index cell part deeper, value = .cell index ∧ cells[index]? = some cell ∧
      (cell.steps cells path)[place]? = some (part, some deeper) ∧
      follow cells part deeper route = some (goal, goalPath) := by
  obtain ⟨cell, found, further⟩ := Option.bind_eq_some_iff.mp followed
  obtain ⟨⟨part, deeper⟩, step, onward⟩ := Option.bind_eq_some_iff.mp further
  obtain ⟨path', rfl, rest⟩ := Option.bind_eq_some_iff.mp onward
  cases value with
  | atom atom => cases found
  | cell index => exact ⟨index, cell, part, path', rfl, found, step, rest⟩

theorem follow_append {value goal : Value} {path goalPath : Text} {before after : List Nat}
    (followed : follow cells value path before = some (goal, goalPath)) :
    follow cells value path (before ++ after) = follow cells goal goalPath after := by
  induction before generalizing value path with
  | nil =>
      cases followed
      rfl
  | cons place before ih =>
      obtain ⟨index, cell, part, deeper, rfl, found, step, followed⟩ := follow_cons_eq_some followed
      rw [List.cons_append, follow_cons found step, ih followed]

theorem follow_prefix {value goal : Value} {path goalPath : Text} {before after : List Nat}
    (followed : follow cells value path (before ++ after) = some (goal, goalPath)) :
    ∃ middle middlePath, follow cells value path before = some (middle, middlePath) ∧
      follow cells middle middlePath after = some (goal, goalPath) := by
  induction before generalizing value path with
  | nil => exact ⟨value, path, rfl, followed⟩
  | cons place before ih =>
      obtain ⟨index, cell, part, deeper, rfl, found, step, onward⟩ := follow_cons_eq_some followed
      rw [follow_cons found step]
      exact ih onward

theorem step_of_path {cell : Cell} {place : Nat} {part : Value} {path deeper : Text}
    (step : (cell.steps cells path)[place]? = some (part, some deeper)) (other : Text) :
    ∃ deeper', (cell.steps cells other)[place]? = some (part, some deeper') := by
  cases cell with
  | list items =>
      simp only [Cell.steps, List.getElem?_mapIdx, Option.map_eq_some_iff] at step ⊢
      obtain ⟨item, found, same⟩ := step
      cases same
      exact ⟨_, part, found, rfl⟩
  | mapping entries =>
      simp only [Cell.steps, List.getElem?_map, Option.map_eq_some_iff] at step ⊢
      obtain ⟨⟨key, value⟩, found, same⟩ := step
      by_cases labelled : hasLabel key = true
      · rw [if_pos labelled] at same
        cases same
        exact ⟨_, (key, value), found, by rw [if_pos labelled]⟩
      · rw [if_neg labelled] at same
        cases same
  | _ => cases step

theorem step_refill (later : Array Cell) {cell : Cell} {place : Nat} {part other : Value}
    {parts : List Value} {path deeper : Text}
    (step : (cell.steps cells path)[place]? = some (part, some deeper))
    (found : parts[place]? = some other) :
    ∃ deeper', ((cell.refill parts).steps later path)[place]? = some (other, some deeper') := by
  cases cell with
  | list items => simp [Cell.refill, Cell.steps, found]
  | mapping entries =>
      simp only [Cell.steps, List.getElem?_map, Option.map_eq_some_iff] at step
      obtain ⟨⟨key, value⟩, entry, same⟩ := step
      by_cases labelled : hasLabel key = true
      · have refilled : ((entries.map Prod.fst).zip parts)[place]? = some (key, other) := by
          rw [List.getElem?_zip_eq_some, List.getElem?_map, entry]
          exact ⟨rfl, found⟩
        simp [Cell.refill, Cell.steps, refilled, labelled]
      · rw [if_neg labelled] at same
        cases same
  | _ => cases step

/-- Where a route leads does not depend on the path of the value at which it begins. -/
theorem follow_of_path {value goal : Value} {path goalPath : Text} {route : List Nat}
    (followed : follow cells value path route = some (goal, goalPath)) (other : Text) :
    ∃ otherPath, follow cells value other route = some (goal, otherPath) := by
  induction route generalizing value path other with
  | nil =>
      cases followed
      exact ⟨other, rfl⟩
  | cons place route ih =>
      obtain ⟨index, cell, part, deeper, rfl, found, step, onward⟩ := follow_cons_eq_some followed
      obtain ⟨deeper', step'⟩ := step_of_path step other
      rw [follow_cons found step']
      exact ih onward deeper'

theorem reaches_of_follow {value goal : Value} {path goalPath : Text} {route : List Nat}
    (followed : follow cells value path route = some (goal, goalPath)) : Reaches cells value goal := by
  induction route generalizing value path with
  | nil =>
      cases followed
      exact .refl
  | cons place route ih =>
      obtain ⟨index, cell, part, deeper, rfl, found, step, followed⟩ := follow_cons_eq_some followed
      exact .head ⟨cell, found, part_of_step (List.mem_of_getElem? step)⟩ (ih followed)

theorem below_of_follow {value goal : Value} {path goalPath : Text} {route : List Nat}
    (onward : route ≠ []) (followed : follow cells value path route = some (goal, goalPath)) :
    TransGen (Inside cells) value goal := by
  cases route with
  | nil => exact absurd rfl onward
  | cons place route =>
      obtain ⟨index, cell, part, deeper, rfl, found, step, followed⟩ := follow_cons_eq_some followed
      exact .head' ⟨cell, found, part_of_step (List.mem_of_getElem? step)⟩ (reaches_of_follow followed)

theorem exists_follow {value goal : Value} (named : Named cells value)
    (reaches : Reaches cells value goal) (path : Text) :
    ∃ route shown, follow cells value path route = some (goal, shown) := by
  induction reaches using ReflTransGen.head_induction_on generalizing path with
  | refl => exact ⟨[], path, rfl⟩
  | head inside _ ih =>
      obtain ⟨index, rfl, -⟩ := isContainer_of_part inside
      obtain ⟨cell, found, member⟩ := inside
      obtain ⟨deeper, step⟩ := step_of_part path member
      cases deeper with
      | none =>
          obtain ⟨key, present, unnamed⟩ := pathless_iff.mp ⟨_, step⟩
          rw [named _ cell .refl found key present] at unnamed
          cases unnamed
      | some deeper =>
          obtain ⟨place, step⟩ := List.mem_iff_getElem?.mp step
          obtain ⟨route, shown, followed⟩ := ih (named.inside ⟨cell, found, member⟩) deeper
          exact ⟨place :: route, shown, (follow_cons found step route).trans followed⟩

theorem not_leftOf_nil {route : List Nat} : ¬ LeftOf route [] := by
  intro left
  cases route <;> cases left

theorem LeftOf.not_prefix {route other : List Nat} (left : LeftOf route other) :
    ¬ route <+: other ∧ ¬ other <+: route := by
  induction route generalizing other with
  | nil => cases left
  | cons first route ih =>
      cases other with
      | nil => cases left
      | cons second other =>
          simp only [List.cons_prefix_cons]
          rcases left with less | ⟨rfl, left⟩
          · exact ⟨fun same => Nat.ne_of_lt less same.1, fun same => Nat.ne_of_gt less same.1⟩
          · exact ⟨fun same => (ih left).1 same.2, fun same => (ih left).2 same.2⟩

theorem LeftOf.asymm {route other : List Nat} (left : LeftOf route other) : ¬ LeftOf other route := by
  induction route generalizing other with
  | nil => cases left
  | cons first route ih =>
      cases other with
      | nil => cases left
      | cons second other =>
          rcases left with less | ⟨rfl, left⟩
          · rintro (more | ⟨rfl, _⟩)
            · exact absurd more (Nat.lt_asymm less)
            · exact absurd less (Nat.lt_irrefl _)
          · rintro (more | ⟨_, back⟩)
            · exact absurd more (Nat.lt_irrefl _)
            · exact ih left back

theorem leftOf_irrefl (route : List Nat) : ¬ LeftOf route route :=
  fun left => left.not_prefix.1 (List.prefix_refl route)

theorem LeftOf.append {route other : List Nat} (left : LeftOf route other) (more others : List Nat) :
    LeftOf (route ++ more) (other ++ others) := by
  induction route generalizing other with
  | nil => cases left
  | cons first route ih =>
      cases other with
      | nil => cases left
      | cons second other =>
          rcases left with less | ⟨same, left⟩
          · exact .inl less
          · exact .inr ⟨same, ih left⟩

theorem leftOf_trichotomy (route other : List Nat) :
    route <+: other ∨ other <+: route ∨ LeftOf route other ∨ LeftOf other route := by
  induction route generalizing other with
  | nil => exact .inl List.nil_prefix
  | cons first route ih =>
      cases other with
      | nil => exact .inr (.inl List.nil_prefix)
      | cons second other =>
          simp only [List.cons_prefix_cons, LeftOf]
          rcases Nat.lt_trichotomy first second with less | rfl | more
          · exact .inr (.inr (.inl (.inl less)))
          · have onward := ih other
            simpa using onward
          · exact .inr (.inr (.inr (.inl more)))

theorem eq_of_first {route other : List Nat} (one : route <+: other ∨ LeftOf route other)
    (two : other <+: route ∨ LeftOf other route) : route = other := by
  rcases one with shorter | left
  · rcases two with shorter' | left'
    · exact shorter.eq_of_length_le shorter'.length_le
    · exact absurd shorter left'.not_prefix.2
  · rcases two with shorter' | left'
    · exact absurd shorter' left.not_prefix.2
    · exact absurd left' left.asymm

end SecretFill.Data
