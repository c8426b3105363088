import Mathlib.Data.Nat.Find
import SecretFill.Proofs.Forest.Cycle
/-!
Several routes may lead to one place of a document, because containers are shared. One of them is
the first from the left (`Arrives`), and that is the one along which a walk comes to the place that
goes into each container only once.
-/

namespace SecretFill.Forest

open Relation
open SecretFill.Data

/-- Two routes lead to one place: they are the same, or both take the same part of one container
last. -/
def SameSpot (cells : Array Cell) (root : Value) (path : Text) (route other : List Nat) : Prop :=
  route = other ∨ ∃ before before' place index here there,
    route = before ++ [place] ∧ other = before' ++ [place] ∧
      follow cells root path before = some (.cell index, here) ∧
      follow cells root path before' = some (.cell index, there)

/-- Of the routes to one place none is further to the left. -/
def Arrives (cells : Array Cell) (root : Value) (path : Text) (route : List Nat) : Prop :=
  ∀ other, SameSpot cells root path other route → ¬ LeftOf other route

variable {cells : Array Cell} {root value goal : Value} {path shown : Text}
  {route other third : List Nat}

/-! ### Routes to one place -/

theorem SameSpot.symm (same : SameSpot cells root path route other) :
    SameSpot cells root path other route := by
  rcases same with rfl | ⟨before, before', place, index, here, there, one, two, led, led'⟩
  · exact .inl rfl
  · exact .inr ⟨before', before, place, index, there, here, two, one, led', led⟩

theorem SameSpot.trans (early : SameSpot cells root path route other)
    (late : SameSpot cells root path other third) : SameSpot cells root path route third := by
  rcases early with rfl | ⟨before, middle, place, index, here, there, one, two, led, led'⟩
  · exact late
  · rcases late with rfl | ⟨middle', after, place', index', here', there', two', three, led'', last⟩
    · exact .inr ⟨before, middle, place, index, here, there, one, two, led, led'⟩
    · obtain ⟨rfl, rfl⟩ : middle = middle' ∧ place = place' := by
        simpa using two.symm.trans two'
      cases led'.symm.trans led''
      exact .inr ⟨before, after, place, index, here, there', one, three, led, last⟩

theorem SameSpot.follow (same : SameSpot cells root path route other)
    (followed : follow cells root path route = some (goal, shown)) :
    ∃ shown', Data.follow cells root path other = some (goal, shown') := by
  rcases same with rfl | ⟨before, before', place, index, here, there, rfl, rfl, led, led'⟩
  · exact ⟨shown, followed⟩
  · rw [follow_append led] at followed
    rw [follow_append led']
    exact follow_of_path followed there

theorem eq_of_shorter {index : Nat} {here there : Text} (grounded : Grounded cells root)
    (led : follow cells root path route = some (.cell index, here))
    (led' : follow cells root path other = some (.cell index, there)) (shorter : route <+: other) :
    route = other := by
  obtain ⟨rest, rfl⟩ := shorter
  rw [follow_append led] at led'
  by_contra differs
  have onward : rest ≠ [] := fun none => differs (by rw [none, List.append_nil])
  exact (grounded.reaches (reaches_of_follow led)).irrefl (below_of_follow onward led')

theorem SameSpot.eq_of_shorter (same : SameSpot cells root path route other)
    (grounded : Grounded cells root) (shorter : route <+: other) : route = other := by
  rcases same with rfl | ⟨before, before', place, index, here, there, rfl, rfl, led, led'⟩
  · rfl
  · rcases List.prefix_concat_iff.mp shorter with whole | part
    · exact whole
    · -- The shorter route would go on from the container to the container itself.
      have inside : before <+: before' := (List.prefix_append before [place]).trans part
      have equal := Forest.eq_of_shorter grounded led led' inside
      rw [equal]

theorem Arrives.unique (grounded : Grounded cells root) (first : Arrives cells root path route)
    (second : Arrives cells root path other) (same : SameSpot cells root path route other) :
    route = other := by
  rcases leftOf_trichotomy route other with shorter | longer | left | right
  · exact same.eq_of_shorter grounded shorter
  · exact (same.symm.eq_of_shorter grounded longer).symm
  · exact absurd left (second route same)
  · exact absurd right (first other same.symm)

/-! ### The first route -/

theorem exists_leftmost (grounded : Grounded cells value) (holds : List Nat → Prop)
    (followed : follow cells value path route = some (goal, shown)) (held : holds route) :
    ∃ first, holds first ∧ ∀ other goal shown, LeftOf other first →
      follow cells value path other = some (goal, shown) → ¬ holds other := by
  classical
  induction grounded generalizing path route holds goal shown with
  | intro value _ ih =>
      cases route with
      | nil => exact ⟨[], held, fun other _ _ left => absurd left not_leftOf_nil⟩
      | cons place route =>
          -- The first of the parts through which such a route goes.
          have present : ∃ place route goal shown,
              follow cells value path (place :: route) = some (goal, shown) ∧ holds (place :: route) :=
            ⟨place, route, goal, shown, followed, held⟩
          obtain ⟨route, goal, shown, followed, held⟩ := Nat.find_spec present
          obtain ⟨index, cell, part, deeper, rfl, found, step, onward⟩ := follow_cons_eq_some followed
          have inside : Inside cells (.cell index) part :=
            ⟨cell, found, part_of_step (List.mem_of_getElem? step)⟩
          obtain ⟨first, held, least⟩ :=
            ih part inside (fun route => holds (Nat.find present :: route)) onward held
          refine ⟨_, held, fun other goal shown left followed held => ?_⟩
          cases other with
          | nil => cases left
          | cons place route =>
              rcases left with less | ⟨rfl, left⟩
              · exact Nat.find_min present less ⟨route, goal, shown, followed, held⟩
              · rw [follow_cons found step] at followed
                exact least route goal shown left followed held

theorem exists_arrives (grounded : Grounded cells root)
    (followed : follow cells root path route = some (goal, shown)) :
    ∃ first, Arrives cells root path first ∧ SameSpot cells root path first route := by
  obtain ⟨first, same, least⟩ := exists_leftmost grounded
    (fun other => SameSpot cells root path other route) followed (.inl rfl)
  refine ⟨first, fun other there left => ?_, same⟩
  obtain ⟨shown', followed'⟩ := (there.trans same).symm.follow followed
  exact least other goal shown' left followed' (there.trans same)

/-- The first route to a place goes into no container to which a route further to the left leads. -/
theorem arrives_iff_unfinished (grounded : Grounded cells root)
    (followed : follow cells root path route = some (goal, shown)) :
    Arrives cells root path route ↔ Unfinished cells [] root path route := by
  constructor
  · intro arrives before index here shorter differs led container
    refine ⟨List.not_mem_nil, fun earlier there left led' => ?_⟩
    obtain ⟨rest, rfl⟩ := shorter
    rcases List.eq_nil_or_concat' rest with none | ⟨inner, place, rfl⟩
    · rw [none, List.append_nil] at differs
      exact differs rfl
    · -- From the container both routes can go on in the same way.
      rw [← List.append_assoc] at followed
      obtain ⟨middle, middlePath, reached, last⟩ := follow_prefix followed
      obtain ⟨outer, _, _, _, rfl, -⟩ := follow_cons_eq_some last
      rw [follow_append led] at reached
      obtain ⟨otherPath, reached'⟩ := follow_of_path reached there
      refine arrives (earlier ++ (inner ++ [place])) (.inr ⟨earlier ++ inner, before ++ inner, place,
        outer, otherPath, middlePath, by simp, by simp, ?_, ?_⟩) (left.append _ _)
      · rw [follow_append led']
        exact reached'
      · rw [follow_append led]
        exact reached
  · rintro unfinished other (rfl | ⟨before, before', place, index, here, there, rfl, rfl, led, led'⟩)
      left
    · exact leftOf_irrefl _ left
    · have container := isContainer_of_follow (List.prefix_append before' [place])
        (fun same => by simpa using congrArg List.length same) led' followed
      obtain ⟨-, apart⟩ := unfinished before' index there (List.prefix_append _ _)
        (fun same => by simpa using congrArg List.length same) led' container
      rcases leftOf_trichotomy before before' with shorter | longer | early | late
      · rw [eq_of_shorter grounded led led' shorter] at left
        exact leftOf_irrefl _ left
      · rw [eq_of_shorter grounded led' led longer] at left
        exact leftOf_irrefl _ left
      · exact apart before here early led
      · exact left.asymm (late.append _ _)

end SecretFill.Forest
