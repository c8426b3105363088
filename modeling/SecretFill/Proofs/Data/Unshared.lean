import SecretFill.Proofs.Data.Unfolding
/-!
Documents that share nothing. Every stream without cycles can be unrolled: behind its cells one lays
out new ones, a container of its own for each place at which a container stands (`Laid`), and what
one sees of the documents stays the same.
-/

namespace SecretFill.Data

open Relation

/-- No container is reached from both of two values. -/
def Apart (cells : Array Cell) (first second : Value) : Prop :=
  ∀ index, IsContainer cells index → Reaches cells first (.cell index) →
    ¬ Reaches cells second (.cell index)

/-- No container below a value is reached by way of two parts of one container. -/
def Unshared (cells : Array Cell) (root : Value) : Prop :=
  ∀ index cell, Reaches cells root (.cell index) → cells[index]? = some cell →
    cell.parts.Pairwise (Apart cells)

/-- A copy of a stream in which no container stands at two places. What is no container stays as it
is in its old cell. -/
structure Unrolls (stream copy : Stream) : Prop where
  cells : ∀ (index : Nat) cell, stream.cells[index]? = some cell → copy.cells[index]? = some cell
  trees : ∃ trees, List.Forall₂ (Unfolds stream.cells) stream.roots trees ∧
    List.Forall₂ (Unfolds copy.cells) copy.roots trees
  apart : copy.roots.Pairwise (Apart copy.cells)
  unshared : ∀ root ∈ copy.roots, Unshared copy.cells root

structure Laid (base later : Array Cell) (trees : List Tree) (values : List Value) : Prop where
  grows : base.size ≤ later.size
  kept : ∀ (index : Nat) cell, base[index]? = some cell → later[index]? = some cell
  unfolds : List.Forall₂ (Unfolds later) values trees
  fresh : ∀ value ∈ values, ∀ index, IsContainer later index → Reaches later value (.cell index) →
    base.size ≤ index
  apart : values.Pairwise (Apart later)
  unshared : ∀ value ∈ values, Unshared later value

variable {cells base middle later : Array Cell} {value goal first second : Value} {tree : Tree}
  {trees : List Tree} {values : List Value}

/-! ### More cells -/

theorem Unfolds.found {index : Nat} (unfolds : Unfolds cells (.cell index) tree) :
    ∃ cell, cells[index]? = some cell := by
  cases unfolds with
  | whole found _ => exact ⟨_, found⟩
  | list found _ _ => exact ⟨_, found⟩
  | mapping found _ _ => exact ⟨_, found⟩

section More

variable (kept : ∀ (index : Nat) cell, cells[index]? = some cell → later[index]? = some cell)

include kept

theorem Unfolds.reaches_old (unfolds : Unfolds cells value tree) (reaches : Reaches later value goal) :
    Reaches cells value goal := by
  induction reaches with
  | refl => exact .refl
  | tail _ inside ih =>
      obtain ⟨index, rfl, -⟩ := isContainer_of_part inside
      obtain ⟨inner, here⟩ := unfolds.reaches ih
      obtain ⟨cell, found⟩ := here.found
      exact ih.tail ((inside_cell found _).mpr ((inside_cell (kept index cell found) _).mp inside))

theorem Unfolds.container_old {index : Nat} (unfolds : Unfolds cells value tree)
    (reaches : Reaches later value (.cell index)) (container : IsContainer later index) :
    IsContainer cells index := by
  obtain ⟨inner, here⟩ := unfolds.reaches (unfolds.reaches_old kept reaches)
  obtain ⟨cell, found⟩ := here.found
  obtain ⟨_, again, isContainer⟩ := container
  cases again.symm.trans (kept index cell found)
  exact ⟨cell, found, isContainer⟩

theorem Apart.extend {other : Tree} (apart : Apart cells first second)
    (unfolds : Unfolds cells first tree) (unfolds' : Unfolds cells second other) :
    Apart later first second :=
  fun index container reaches reaches' =>
    apart index (unfolds.container_old kept reaches container) (unfolds.reaches_old kept reaches)
      (unfolds'.reaches_old kept reaches')

theorem Unshared.extend (unshared : Unshared cells value) (unfolds : Unfolds cells value tree) :
    Unshared later value := by
  intro index cell reaches found
  have reached := unfolds.reaches_old kept reaches
  obtain ⟨inner, here⟩ := unfolds.reaches reached
  obtain ⟨old, found'⟩ := here.found
  cases found.symm.trans (kept index old found')
  refine (unshared index cell reached found').imp_of_mem fun inFirst inSecond apart => ?_
  obtain ⟨_, one⟩ := here.inside ((inside_cell found' _).mpr inFirst)
  obtain ⟨_, two⟩ := here.inside ((inside_cell found' _).mpr inSecond)
  exact apart.extend kept one two

end More

/-! ### Laying out -/

theorem laid_nil (base : Array Cell) : Laid base base [] [] :=
  ⟨Nat.le_refl _, fun _ _ found => found, .nil, List.forall_mem_nil _, .nil, List.forall_mem_nil _⟩

theorem laid_leaf (unfolds : Unfolds base value tree)
    (simple : ∀ index, value = .cell index → ¬ IsContainer base index) :
    Laid base base [tree] [value] := by
  have alone : ∀ goal, Reaches base value goal → goal = value :=
    fun goal reaches => reaches.eq_of_simple simple
  refine ⟨Nat.le_refl _, fun _ _ found => found, .cons unfolds .nil, ?_,
    List.pairwise_singleton _ _, ?_⟩
  · intro other member index container reaches
    cases List.mem_singleton.mp member
    exact absurd container (simple index (alone _ reaches).symm)
  · intro other member index cell reaches found
    cases List.mem_singleton.mp member
    have plain : ¬ cell.isContainer = true := fun container =>
      simple index (alone _ reaches).symm ⟨cell, found, container⟩
    rw [parts_of_simple plain]
    exact .nil

theorem Laid.cons (one : Laid base middle [tree] [value]) (more : Laid middle later trees values) :
    Laid base later (tree :: trees) (value :: values) := by
  obtain - | ⟨unfolds, -⟩ := one.unfolds
  refine ⟨one.grows.trans more.grows, fun index cell found => more.kept _ _ (one.kept _ _ found),
    .cons (unfolds.extend more.kept) more.unfolds, ?_, ?_, ?_⟩
  · refine List.forall_mem_cons.mpr ⟨fun index container reaches => ?_, ?_⟩
    · exact one.fresh value List.mem_cons_self index
        (unfolds.container_old more.kept reaches container) (unfolds.reaches_old more.kept reaches)
    · exact fun other member index container reaches =>
        one.grows.trans (more.fresh other member index container reaches)
  · -- The containers of the first value lie before the cells that were laid out for the others.
    refine List.pairwise_cons.mpr
      ⟨fun other member index container reaches reaches' => ?_, more.apart⟩
    obtain ⟨cell, found, -⟩ := unfolds.container_old more.kept reaches container
    have early := (Array.getElem?_eq_some_iff.mp found).1
    have late := more.fresh other member index container reaches'
    omega
  · exact List.forall_mem_cons.mpr
      ⟨(one.unshared value List.mem_cons_self).extend more.kept unfolds, more.unshared⟩

theorem Laid.container {cell : Cell} (container : cell.isContainer = true)
    (below : Laid base middle trees values) (sizes : cell.parts.length = values.length) :
    Laid base (middle.push (cell.refill values)) [cell.tree trees] [.cell middle.size] := by
  have kept : ∀ (index : Nat) other, middle[index]? = some other →
      (middle.push (cell.refill values))[index]? = some other := by
    grind
  have found : (middle.push (cell.refill values))[middle.size]? = some (cell.refill values) :=
    Array.getElem?_push_size
  have parts := parts_refill container sizes
  -- What one reaches is the new container itself or lies among the cells of its parts.
  have reached : ∀ goal, Reaches (middle.push (cell.refill values)) (.cell middle.size) goal →
      goal = .cell middle.size ∨ ∃ value ∈ values, ∃ tree, Unfolds middle value tree ∧
        Reaches (middle.push (cell.refill values)) value goal := by
    intro goal reaches
    rcases ReflTransGen.cases_head reaches with same | ⟨part, inside, further⟩
    · exact .inl same.symm
    · have member := (inside_cell found part).mp inside
      rw [parts] at member
      obtain ⟨tree, -, unfolds⟩ := forall₂_left below.unfolds member
      exact .inr ⟨part, member, tree, unfolds, further⟩
  refine ⟨?_, fun index other old => kept _ _ (below.kept _ _ old), .cons ?_ .nil, ?_,
    List.pairwise_singleton _ _, ?_⟩
  · rw [Array.size_push]
    exact Nat.le_succ_of_le below.grows
  · exact unfolds_refill found container sizes
      (below.unfolds.imp fun _ _ unfolds => unfolds.extend kept)
  · intro other member index container' reaches
    cases List.mem_singleton.mp member
    rcases reached _ reaches with same | ⟨value, inside, tree, unfolds, further⟩
    · cases same
      exact below.grows
    · exact below.fresh value inside index (unfolds.container_old kept further container')
        (unfolds.reaches_old kept further)
  · intro other member index inner reaches found'
    cases List.mem_singleton.mp member
    rcases reached _ reaches with same | ⟨value, inside, tree, unfolds, further⟩
    · cases same
      cases found'.symm.trans found
      rw [parts]
      refine below.apart.imp_of_mem fun inFirst inSecond apart => ?_
      obtain ⟨_, -, one⟩ := forall₂_left below.unfolds inFirst
      obtain ⟨_, -, two⟩ := forall₂_left below.unfolds inSecond
      exact apart.extend kept one two
    · exact (below.unshared value inside).extend kept unfolds index inner further found'

def Tree.Layable (cells : Array Cell) (tree : Tree) : Prop :=
  ∀ base : Array Cell, (∀ (index : Nat) cell, cells[index]? = some cell → base[index]? = some cell) →
    ∃ later value, Laid base later [tree] [value]

theorem exists_laid_all {parts : List Value}
    (each : List.Forall₂ (fun _ tree => Tree.Layable cells tree) parts trees) (base : Array Cell)
    (kept : ∀ (index : Nat) cell, cells[index]? = some cell → base[index]? = some cell) :
    ∃ later values, Laid base later trees values := by
  induction each generalizing base with
  | nil => exact ⟨base, [], laid_nil base⟩
  | cons first _ ih =>
      obtain ⟨middle, value, one⟩ := first base kept
      obtain ⟨later, values, more⟩ := ih middle fun index cell found => one.kept _ _ (kept _ _ found)
      exact ⟨later, value :: values, one.cons more⟩

theorem Unfolds.layable (unfolds : Unfolds cells value tree) : tree.Layable cells := by
  induction unfolds using Unfolds.induction_parts with
  | atom atom => exact fun base _ => ⟨base, .atom atom,
      laid_leaf (.atom atom) fun _ same => nomatch same⟩
  | whole index cell found simple =>
      intro base kept
      have found' := kept index cell found
      refine ⟨base, .cell index, laid_leaf (.whole found' simple) ?_⟩
      rintro other same ⟨_, again, container⟩
      cases same
      cases again.symm.trans found'
      rw [simple] at container
      cases container
  | container index cell trees _ container below =>
      intro base kept
      obtain ⟨middle, values, laid⟩ := exists_laid_all (below.imp fun _ _ both => both.2) base kept
      have sizes := below.length_eq.trans laid.unfolds.length_eq.symm
      exact ⟨_, _, laid.container container sizes⟩

theorem exists_unrolling {stream : Stream}
    (unfolds : List.Forall₂ (Unfolds stream.cells) stream.roots trees) :
    ∃ copy, Unrolls stream copy := by
  obtain ⟨later, roots, laid⟩ := exists_laid_all (unfolds.imp fun _ _ unfolds => unfolds.layable)
    stream.cells fun _ _ found => found
  exact ⟨⟨later, roots⟩, laid.kept, ⟨trees, unfolds, laid.unfolds⟩, laid.apart, laid.unshared⟩

end SecretFill.Data
